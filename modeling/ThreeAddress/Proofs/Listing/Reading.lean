import ThreeAddress.Proofs.Analysis.Operands
import ThreeAddress.Proofs.Listing.Cells
import ThreeAddress.Proofs.Text.Classes

/-!
# Reading instructions off a listing

The cells of an instruction say almost everything about it. The operator is known by its symbol, and
it tells what kind of operand the result is. An argument is a literal if it begins with a digit.
What cannot be seen is whether an argument is a temporary or a variable of that name, so a reader
takes it for the variable (`Operand.blurred`).

`Listing.read_render` says that reading the listing of a program gives this view of its
instructions.
-/

namespace ThreeAddress

open Text

/-! ## 1. Characters of operands -/

namespace Text

theorem plain_of_isDigit {c : Char} (h : c.isDigit = true) : isWhiteSpace c = false ∧ c ≠ ';' := by
  refine ⟨isWhiteSpace_of_isDigit h, ?_⟩
  rintro rfl
  exact absurd h (by decide)

theorem plain_of_isAlphabetic {c : Char} (h : isAlphabetic c = true) :
    isWhiteSpace c = false ∧ c ≠ ';' := by
  refine ⟨isWhiteSpace_of_isAlphabetic h, ?_⟩
  rintro rfl
  exact absurd h (by decide)

theorem IsNumber.plain {cs : List Char} (h : IsNumber cs) : Plain cs :=
  fun c hc => plain_of_isDigit (h.2 c hc)

theorem IsWord.plain {cs : List Char} (h : IsWord cs) : Plain cs :=
  fun c hc => (h.2 c hc).elim plain_of_isAlphabetic plain_of_isDigit

theorem ofDigitChars_toString (n : Nat) : Nat.ofDigitChars 10 (toString n).toList 0 = n := by
  rw [Nat.toString_eq_repr, Nat.toList_repr]
  exact Nat.ofDigitChars_toDigits (by decide) (by decide)

end Text

/-! ## 2. Texts of operands -/

variable {q : Quad} {a : Operand}

theorem IsLiteral.plain {text : String} (h : IsLiteral text) : Plain text.toList := by
  obtain ⟨type, hspells⟩ := h
  cases type with
  | integer => exact IsNumber.plain hspells
  | real =>
    obtain ⟨whole, fraction, htext, hwhole, hfraction⟩ := hspells
    rw [htext]
    intro c hc
    rcases List.mem_append.mp hc with hc | hc
    · exact hwhole.plain c hc
    · rcases List.mem_cons.mp hc with rfl | hc
      · decide
      · exact hfraction.plain c hc

/-- A literal begins with a digit. -/
theorem IsLiteral.exists_digit {text : String} (h : IsLiteral text) :
    ∃ c cs, text.toList = c :: cs ∧ c.isDigit = true := by
  have hnumber : ∀ cs rest, IsNumber cs → ∃ c cs', cs ++ rest = c :: cs' ∧ c.isDigit = true := by
    rintro (_ | ⟨c, cs⟩) rest ⟨hne, hdigits⟩
    · exact absurd rfl hne
    · exact ⟨c, cs ++ rest, rfl, hdigits c List.mem_cons_self⟩
  obtain ⟨type, hspells⟩ := h
  cases type with
  | integer =>
    obtain ⟨c, cs, hcs, hdigit⟩ := hnumber text.toList [] hspells
    exact ⟨c, cs, by rwa [List.append_nil] at hcs, hdigit⟩
  | real =>
    obtain ⟨whole, fraction, htext, hwhole, -⟩ := hspells
    rw [htext]
    exact hnumber whole _ hwhole

theorem isLiteral_zero (type : VarType) : IsLiteral type.zero := by
  refine ⟨type, ?_⟩
  have hzero : IsNumber ['0'] := isNumber_singleton rfl
  cases type with
  | integer => exact hzero
  | real => exact ⟨['0'], ['0'], rfl, hzero, hzero⟩

/-- A name begins with a letter, which is no digit. -/
theorem IsIdentifier.exists_letter {name : String} (h : IsIdentifier name) :
    ∃ c cs, name.toList = c :: cs ∧ c.isDigit = false := by
  obtain ⟨⟨⟨c, hc, hletter⟩, -⟩, -⟩ := h
  obtain ⟨cs, hcs⟩ := List.head?_eq_some_iff.mp hc
  exact ⟨c, cs, hcs, isDigit_of_isAlphabetic hletter⟩

theorem toList_text_temp (t : Nat) : (Operand.temp t).text.toList = 'T' :: (toString t).toList := by
  simp [Operand.text, toString]

theorem Operand.IsValue.plain (h : a.IsValue IsIdentifier IsLiteral) : Plain a.text.toList := by
  cases h with
  | var hname => exact hname.1.plain
  | const hliteral => exact hliteral.plain
  | temp t =>
    rw [toList_text_temp]
    exact List.forall_mem_cons.mpr ⟨by decide, (isNumber_toString t).plain⟩

theorem Instruction.isValue_of_mem {names : String → Prop} (h : Instruction names IsLiteral q)
    (ha : a ∈ q.arguments) : a.IsValue names IsLiteral := by
  cases h with
  | alloc =>
    rw [List.mem_singleton.mp ha]
    exact .const (isLiteral_zero _)
  | read | jump | halt => cases ha
  | write hname =>
    rw [List.mem_singleton.mp ha]
    exact .var hname
  | store hvalue =>
    rw [List.mem_singleton.mp ha]
    exact hvalue
  | negate t hvalue =>
    rw [List.mem_singleton.mp ha]
    exact hvalue
  | arithmetic op t hleft hright =>
    rcases List.mem_pair.mp ha with rfl | rfl
    · exact hleft
    · exact hright
  | comparison c t hleft hright =>
    rcases List.mem_pair.mp ha with rfl | rfl
    · exact hleft
    · exact hright
  | branch t target =>
    rw [List.mem_singleton.mp ha]
    exact .temp t

theorem plain_slotText {slot : Option Operand} (h : ∀ a ∈ slot, Plain a.text.toList) :
    Plain (Quad.slotText slot).toList := by
  cases slot with
  | none => exact .nil
  | some a => exact h a rfl

theorem plain_symbol (op : Operator) : Plain op.symbol.toList := by
  have hall : op.symbol.toList.all (fun c => !isWhiteSpace c && c != ';') = true := by
    cases op <;> decide
  intro c hc
  simpa using List.all_eq_true.mp hall c hc

theorem Instruction.plain_result (h : Instruction IsIdentifier IsLiteral q) :
    Plain (Quad.slotText q.result).toList := by
  have hvar : ∀ name, IsIdentifier name → Plain (Operand.var name).text.toList :=
    fun name hname => hname.1.plain
  have htemp : ∀ t, Plain (Operand.temp t).text.toList :=
    fun t => Operand.IsValue.plain (.temp t)
  have htarget : ∀ n, Plain (Operand.target (.line n)).text.toList :=
    fun n => (isNumber_toString n).plain
  cases h with
  | alloc hname => exact hvar _ hname
  | read hname => exact hvar _ hname
  | store hvalue hname => exact hvar _ hname
  | negate t | arithmetic op t | comparison c t => exact htemp t
  | branch t n => exact htarget n
  | jump n => exact htarget n
  | write | halt => exact .nil

theorem Instruction.printable (h : Instruction IsIdentifier IsLiteral q) : q.Printable := by
  have harg1 : ∀ a ∈ q.arg1, Plain a.text.toList :=
    fun a ha => (h.isValue_of_mem (Quad.mem_arguments_of_arg1 ha)).plain
  have harg2 : ∀ a ∈ q.arg2, Plain a.text.toList :=
    fun a ha => (h.isValue_of_mem (Quad.mem_arguments_of_arg2 ha)).plain
  simp only [Quad.Printable, Quad.cells, List.forall_mem_cons]
  exact ⟨plain_symbol q.op, plain_slotText harg1, plain_slotText harg2, h.plain_result,
    fun _ hcell => absurd hcell List.not_mem_nil⟩

/-! ## 3. Reading cells -/

/-- A temporary taken for the variable of its name. -/
def Operand.blurred : Operand → Operand
  | temp t => var (temp t).text
  | a => a

/-- An instruction with its arguments as a reader takes them. -/
def Quad.blurred (q : Quad) : Quad :=
  { q with arg1 := q.arg1.map Operand.blurred, arg2 := q.arg2.map Operand.blurred }

/-- The argument in a cell. -/
def Operand.readArgument : List Char → Option Operand
  | [] => none
  | c :: cs =>
    let text := String.ofList (c :: cs)
    some (if c.isDigit then .const text else .var text)

/-- The result in a cell. -/
def Operator.readResult (op : Operator) (cell : List Char) : Option Operand :=
  if cell = [] then none
  else if op.computes then some (.temp (Nat.ofDigitChars 10 (cell.drop 1) 0))
  else if op.isJump then some (.target (.line (Nat.ofDigitChars 10 cell 0)))
  else some (.var (String.ofList cell))

/-- The operators of quadruples. -/
def Operator.all : List Operator :=
  [alloc, read, write, store, add, subtract, mult, divide, negate, eq, neq, gte, lte, gt, lt,
   jumpIfFalse, jump, halt]

/-- The operator with a symbol. -/
def Operator.ofSymbol? (cell : List Char) : Option Operator :=
  all.find? (·.symbol.toList = cell)

/-- The instruction in the cells of a row. -/
def Quad.ofCells? : List (List Char) → Option Quad
  | [symbol, arg1, arg2, result] =>
    (Operator.ofSymbol? symbol).map fun op =>
      ⟨op, Operand.readArgument arg1, Operand.readArgument arg2, op.readResult result⟩
  | _ => none

theorem ofSymbol?_symbol (op : Operator) : Operator.ofSymbol? op.symbol.toList = some op := by
  cases op <;> decide

theorem readArgument_text (h : a.IsValue IsIdentifier IsLiteral) :
    Operand.readArgument a.text.toList = some a.blurred := by
  cases h with
  | @var name hname =>
    obtain ⟨c, cs, hcs, hdigit⟩ := hname.exists_letter
    have hname' : String.ofList (c :: cs) = name := by rw [← hcs, String.ofList_toList]
    simp [Operand.text, Operand.blurred, Operand.readArgument, hcs, hdigit, hname']
  | @const text hliteral =>
    obtain ⟨c, cs, hcs, hdigit⟩ := hliteral.exists_digit
    have htext : String.ofList (c :: cs) = text := by rw [← hcs, String.ofList_toList]
    simp [Operand.text, Operand.blurred, Operand.readArgument, hcs, hdigit, htext]
  | temp t =>
    have htext : String.ofList ('T' :: (toString t).toList) = (Operand.temp t).text := by
      rw [← toList_text_temp, String.ofList_toList]
    rw [toList_text_temp, Operand.readArgument, htext]
    rfl

theorem readArgument_slotText {slot : Option Operand}
    (h : ∀ a ∈ slot, a.IsValue IsIdentifier IsLiteral) :
    Operand.readArgument (Quad.slotText slot).toList = slot.map Operand.blurred := by
  cases slot with
  | none => rfl
  | some a => exact readArgument_text (h a rfl)

theorem Instruction.readResult_slotText (h : Instruction IsIdentifier IsLiteral q) :
    q.op.readResult (Quad.slotText q.result).toList = q.result := by
  have htemp : ∀ op : Operator, op.computes = true → ∀ t,
      op.readResult (Operand.temp t).text.toList = some (.temp t) := by
    intro op hop t
    rw [toList_text_temp, Operator.readResult, if_neg (List.cons_ne_nil _ _), if_pos hop,
      List.drop_one, List.tail_cons, ofDigitChars_toString]
  have htarget : ∀ op : Operator, op.computes = false → op.isJump = true → ∀ n,
      op.readResult (Operand.target (.line n)).text.toList = some (.target (.line n)) := by
    intro op hop hjump n
    rw [Operand.text, Operator.readResult, if_neg (isNumber_toString n).1, if_neg (by simp [hop]),
      if_pos hjump, ofDigitChars_toString]
  have hvar : ∀ op : Operator, op.computes = false → op.isJump = false → ∀ name, IsIdentifier name →
      op.readResult name.toList = some (.var name) := by
    intro op hop hjump name hname
    obtain ⟨c, cs, hcs, -⟩ := hname.exists_letter
    have hne : name.toList ≠ [] := by simp [hcs]
    rw [Operator.readResult, if_neg hne, if_neg (by simp [hop]), if_neg (by simp [hjump]),
      String.ofList_toList]
  cases h with
  | alloc hname => exact hvar .alloc rfl rfl _ hname
  | read hname => exact hvar .read rfl rfl _ hname
  | store hvalue hname => exact hvar .store rfl rfl _ hname
  | negate t => exact htemp .negate rfl t
  | arithmetic op t => exact htemp op.operator op.computes_operator t
  | comparison c t => exact htemp c.operator c.computes_operator t
  | branch t n => exact htarget .jumpIfFalse rfl rfl n
  | jump n => exact htarget .jump rfl rfl n
  | write | halt => rfl

theorem Instruction.ofCells?_cells (h : Instruction IsIdentifier IsLiteral q) :
    Quad.ofCells? q.cells = some q.blurred := by
  have harg1 := readArgument_slotText fun a ha => h.isValue_of_mem (Quad.mem_arguments_of_arg1 ha)
  have harg2 := readArgument_slotText fun a ha => h.isValue_of_mem (Quad.mem_arguments_of_arg2 ha)
  simp only [Quad.ofCells?, Quad.cells, ofSymbol?_symbol, Option.map_some, harg1, harg2,
    h.readResult_slotText, Quad.blurred]

/-- The instructions in a listing. -/
def Listing.read (l : Listing) (text : String) : List Quad :=
  (l.readTable text).filterMap Quad.ofCells?

/-- **Reading the listing of a program gives its instructions as far as they can be seen.** -/
theorem Listing.read_render (l : Listing) {program : Program}
    (h : ∀ q ∈ program.quads.toList, Instruction IsIdentifier IsLiteral q) :
    l.read (l.render program) = program.quads.toList.map Quad.blurred := by
  rw [read, l.readTable_render fun q hq => (h q hq).printable, List.filterMap_map]
  calc program.quads.toList.filterMap (Quad.ofCells? ∘ Quad.cells)
      = program.quads.toList.filterMap (some ∘ Quad.blurred) :=
        List.filterMap_congr fun q hq => (h q hq).ofCells?_cells
    _ = program.quads.toList.map Quad.blurred := by rw [List.filterMap_eq_map]

end ThreeAddress
