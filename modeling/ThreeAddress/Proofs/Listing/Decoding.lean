import ThreeAddress.Proofs.Listing.Identity

/-!
# Decoding listings

A reader of a listing cannot tell a temporary from a variable of its name. If no variable is named
like a temporary, the name itself tells: what is a `T` and digits is the temporary of that number
(`Operand.sharpened`), and everything else is what it seems to be. So a listing can be decoded,
under each setting, and the number of digits in front of an instruction makes no difference.
-/

namespace ThreeAddress

/-- The name is a `T` and one or more digits. -/
def NamedLikeTemp (name : String) : Prop :=
  ∃ digits, name.toList = 'T' :: digits ∧ Text.IsNumber digits

def tempNumber? : List Char → Option Nat
  | c :: digits =>
    if c = 'T' && !digits.isEmpty && digits.all Char.isDigit then
      some (Nat.ofDigitChars 10 digits 0)
    else none
  | [] => none

/-- A variable that is named like a temporary taken for the temporary. -/
def Operand.sharpened : Operand → Operand
  | var name => ((tempNumber? name.toList).map temp).getD (var name)
  | a => a

def Quad.sharpened (q : Quad) : Quad :=
  { q with arg1 := q.arg1.map Operand.sharpened, arg2 := q.arg2.map Operand.sharpened }

/-- The instructions that a listing was made from. -/
def Listing.decode (l : Listing) (text : String) : List Quad :=
  (l.read text).map Quad.sharpened

theorem tempNumber?_text (t : Nat) : tempNumber? (Operand.temp t).text.toList = some t := by
  obtain ⟨-, hdigits⟩ := Text.isNumber_toString t
  have hall : (toString t).toList.all Char.isDigit = true := List.all_eq_true.mpr hdigits
  have hsome : (toString t).toList.isEmpty = false := by simp
  rw [toList_text_temp, tempNumber?, hall, hsome, Text.ofDigitChars_toString]
  rfl

theorem namedLikeTemp_of_tempNumber? {name : String} {t : Nat}
    (h : tempNumber? name.toList = some t) : NamedLikeTemp name := by
  cases hname : name.toList with
  | nil =>
    rw [hname] at h
    cases h
  | cons c digits =>
    rw [hname, tempNumber?] at h
    split at h
    · rename_i htemp
      simp only [Bool.and_eq_true, decide_eq_true_eq, Bool.not_eq_true', List.isEmpty_eq_false_iff]
        at htemp
      obtain ⟨⟨rfl, hne⟩, hall⟩ := htemp
      exact ⟨digits, hname, hne, List.all_eq_true.mp hall⟩
    · cases h

namespace Operand

theorem sharpened_blurred {a : Operand} (h : ∀ name, a = .var name → ¬ NamedLikeTemp name) :
    a.blurred.sharpened = a := by
  cases a with
  | var name =>
    have hnone : tempNumber? name.toList = none := by
      rw [Option.eq_none_iff_forall_ne_some]
      intro t ht
      exact h name rfl (namedLikeTemp_of_tempNumber? ht)
    simp [blurred, sharpened, hnone]
  | temp t => simp [blurred, sharpened, tempNumber?_text]
  | const | target => rfl

end Operand

theorem Quad.sharpened_blurred {q : Quad}
    (h : ∀ name, .var name ∈ q.arguments → ¬ NamedLikeTemp name) : q.blurred.sharpened = q := by
  have hslot : ∀ slot : Option Operand, (∀ a ∈ slot, a ∈ q.arguments) →
      (slot.map Operand.blurred).map Operand.sharpened = slot := by
    intro slot hmem
    cases slot with
    | none => rfl
    | some a =>
      have hname : ∀ name, a = .var name → ¬ NamedLikeTemp name := by
        rintro name rfl
        exact h name (hmem _ rfl)
      simp [Operand.sharpened_blurred hname]
  have harg1 := hslot q.arg1 fun a ha => mem_arguments_of_arg1 ha
  have harg2 := hslot q.arg2 fun a ha => mem_arguments_of_arg2 ha
  simp only [sharpened, blurred, harg1, harg2]

theorem Listing.decode_render (l : Listing) {program : Program}
    (h : ∀ q ∈ program.quads.toList, Instruction IsIdentifier IsLiteral q)
    (hnames : ∀ q ∈ program.quads.toList, ∀ name, .var name ∈ q.arguments → ¬ NamedLikeTemp name) :
    l.decode (l.render program) = program.quads.toList := by
  rw [decode, l.read_render h, List.map_map]
  calc program.quads.toList.map (Quad.sharpened ∘ Quad.blurred)
      = program.quads.toList.map id :=
        List.map_congr_left fun q hq => Quad.sharpened_blurred (hnames q hq)
    _ = program.quads.toList := List.map_id _

namespace Analysis

/-- **The listing of an accepted program can be decoded**, with or without the header and the line
numbers, if no declared variable is named like a temporary. -/
theorem decodes_listing {source : String} {a : Analysis} (h : (ofSource source).1 = .ok a)
    (hnames : ∀ v ∈ a.symbols.symbols.toList, ¬ NamedLikeTemp v.name) (l : Listing) :
    l.decode (l.render a.program) = a.program.quads.toList := by
  obtain ⟨tree, haccepted⟩ := exists_accepted h
  apply l.decode_render
  · intro q hq
    exact (haccepted.instruction_of_mem hq).mono fun _ hname => hname.2
  · intro q hq name hname
    have hdeclares := (haccepted.instruction_of_mem hq).names_of_argument hname
    obtain ⟨v, hv, rfl⟩ := List.mem_map.mp hdeclares.1
    exact hnames v hv

theorem decodes_listing_sum :
    (ofSource "program p integer: a, b, c begin a := -b + c end.").1 =
      .ok (sumOf "c" (.temp 1) (.var "c")) ∧
    (∀ v ∈ (sumOf "c" (.temp 1) (.var "c")).symbols.symbols.toList, ¬ NamedLikeTemp v.name) ∧
    ∀ l : Listing, l.decode (l.render (sumOf "c" (.temp 1) (.var "c")).program) =
      (sumOf "c" (.temp 1) (.var "c")).program.quads.toList := by
  have hok : (ofSource "program p integer: a, b, c begin a := -b + c end.").1 =
      .ok (sumOf "c" (.temp 1) (.var "c")) := by decide +kernel
  have hnames : ∀ v ∈ (sumOf "c" (.temp 1) (.var "c")).symbols.symbols.toList,
      ¬ NamedLikeTemp v.name := by
    intro v hv
    rintro ⟨digits, hdigits, -⟩
    have hfirst : ∀ v ∈ (sumOf "c" (.temp 1) (.var "c")).symbols.symbols.toList,
        v.name.toList.head? ≠ some 'T' := by decide
    exact hfirst v hv (by rw [hdigits]; rfl)
  exact ⟨hok, hnames, decodes_listing hok hnames⟩

end Analysis

end ThreeAddress
