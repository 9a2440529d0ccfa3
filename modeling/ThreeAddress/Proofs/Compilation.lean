import ThreeAddress.Proofs.Analysis.Outcome
import ThreeAddress.Proofs.Semantics.Simulation
import ThreeAddress.Proofs.Syntax.Unambiguous

/-!
# What an accepted source is compiled to

An analysis emits code while it reads. It leaves holes for jumps forward and fills them later, it
draws temporaries from a counter, and it never sees its source as a whole. Two theorems say that
this makes no difference.

* `Analysis.one_pass_eq_two_pass`: the program is the one that the two-pass compiler makes from the
  parse tree.
* `Analysis.preserves_meaning`: run on a machine, the program does what the source means.
-/

namespace ThreeAddress

universe u

/-- The leaves of the tree are the tokens of the source. -/
def IsParse (source : String) (tree : Tree .program) : Prop :=
  ∃ ts, (Lexer.ofSource source).tokens.answer = .ok ts ∧ ts.map Token.lexeme = tree.lexemes

theorem IsParse.unique {source : String} {tree tree' : Tree .program} (h : IsParse source tree)
    (h' : IsParse source tree') : tree' = tree := by
  obtain ⟨ts, hts, hlexemes⟩ := h
  obtain ⟨ts', hts', hlexemes'⟩ := h'
  rw [hts] at hts'
  cases hts'
  exact Tree.lexemes_injective (hlexemes'.symm.trans hlexemes)

theorem Accepted.isParse {source : String} {a : Analysis} {tree : Tree .program}
    (h : Accepted source a tree) : IsParse source tree :=
  ⟨_, tokens_ofSource_eq_ok_iff.mpr (by rw [← h.error]), h.lexemes⟩

namespace Analysis

/-- A program with a loop, a conditional and nested operations. -/
def countdown : String :=
  "program countdown integer: a, b begin read(a); while a > 0 do " ++
  "if b < a then b := b + a else b := -(b * 2) $; a := a - 1 $; write(b) end."

theorem exists_ofSource_countdown :
    ∃ a, (ofSource countdown).1 = .ok a ∧ a.program.quads.size = 18 :=
  exists_of_map_toOption (by decide +kernel)

/-- **Generating code in one pass, with holes that are patched, gives the code that the two-pass
compiler gives for the parse tree.** -/
theorem one_pass_eq_two_pass {source : String} {a : Analysis} (h : (ofSource source).1 = .ok a) :
    ∃ tree, IsParse source tree ∧ (∀ tree', IsParse source tree' → tree' = tree) ∧
      a.program.quads.toList = tree.meaning.code := by
  obtain ⟨tree, haccepted⟩ := exists_accepted h
  exact ⟨tree, haccepted.isParse, fun _ => haccepted.isParse.unique, haccepted.code⟩

theorem one_pass_eq_two_pass_countdown :
    ∃ a, (ofSource countdown).1 = .ok a ∧
      ∃ tree, IsParse countdown tree ∧ (∀ tree', IsParse countdown tree' → tree' = tree) ∧
        a.program.quads.toList = tree.meaning.code := by
  obtain ⟨a, ha, -⟩ := exists_ofSource_countdown
  exact ⟨a, ha, one_pass_eq_two_pass ha⟩

/-- **Compilation preserves meaning**: under every interpretation and on every input, the source
ends with some output and some values of its variables if and only if its code does. -/
theorem preserves_meaning {source : String} {a : Analysis} (h : (ofSource source).1 = .ok a) :
    ∃ tree, IsParse source tree ∧ (∀ tree', IsParse source tree' → tree' = tree) ∧
      ∀ {V : Type u} (I : Interpretation V) (input output : List V) (s : String → Option V),
        (∃ w, tree.meaning.Ends I input w ∧ w.output = output ∧
          ∀ v ∈ tree.meaning.symbols, w.vars v.name = s v.name) ↔
        ∃ w, Machine.Ends I a.program.quads.toList input w ∧ w.output = output ∧
          ∀ v ∈ tree.meaning.symbols, w.vars v.name = s v.name := by
  obtain ⟨tree, haccepted⟩ := exists_accepted h
  refine ⟨tree, haccepted.isParse, fun _ => haccepted.isParse.unique, ?_⟩
  intro V I input output s
  rw [haccepted.code]
  simp only [SourceProgram.ends_iff haccepted.distinct]

theorem preserves_meaning_countdown :
    ∃ a, (ofSource countdown).1 = .ok a ∧
      ∃ tree, IsParse countdown tree ∧ (∀ tree', IsParse countdown tree' → tree' = tree) ∧
        ∀ {V : Type} (I : Interpretation V) (input output : List V) (s : String → Option V),
          (∃ w, tree.meaning.Ends I input w ∧ w.output = output ∧
            ∀ v ∈ tree.meaning.symbols, w.vars v.name = s v.name) ↔
          ∃ w, Machine.Ends I a.program.quads.toList input w ∧ w.output = output ∧
            ∀ v ∈ tree.meaning.symbols, w.vars v.name = s v.name := by
  obtain ⟨a, ha, -⟩ := exists_ofSource_countdown
  exact ⟨a, ha, preserves_meaning ha⟩

end Analysis

end ThreeAddress
